import ProtonChain.Solidity.DexPools

/-! The books of shares.

A run leaves the shares of each pair equal to what its holders have, and both reserves
filled as long as there are shares. So the divisions of the contract have a divisor.
-/

set_option autoImplicit false

namespace ProtonChain.Solidity.ProtonDEX

open Checked ConstantProduct

/-- What a call does to the pair under one hash. -/
inductive Effect (before after : ProtonDEX) (pairHash : Hash) : Prop where
  | untouched (pair : after.pair pairHash = before.pair pairHash)
    (shares : after.lpTotal pairHash = before.lpTotal pairHash)
  | created (free : (before.pair pairHash).tokenA = Address.zero) (token0 token1 : Address)
    (pair : after.pair pairHash = freshPair token0 token1)
    (shares : after.lpTotal pairHash = before.lpTotal pairHash)
  | moved (found : (before.pair pairHash).tokenA ≠ Address.zero)
    (token : (after.pair pairHash).tokenA = (before.pair pairHash).tokenA)
    (move : Pool.Move (pool (before.pair pairHash)) (pool (after.pair pairHash)))
    (shares : after.lpTotal pairHash + (before.pair pairHash).totalLiquidity.toNat =
      before.lpTotal pairHash + (after.pair pairHash).totalLiquidity.toNat)

/-! ## Steps -/

section Step
variable {World : Type} {env : Env World} {caller : Address} {state next : State World}

theorem Adds.effect {token0 token1 : Address} {amountA amountB minLiquidity liquidity : U256}
    {world : World}
    (adds : Adds env caller state token0 token1 amountA amountB minLiquidity liquidity world)
    (hash : Hash) :
    Effect state.dex
      (added caller state (pairHash env token0 token1) amountA amountB liquidity) hash := by
  have minted := adds.deposit.shares
  have credited := BitVec.toNat_add_of_lt adds.balance
  have held := lpTotal_setLpBalance state.dex (pairHash env token0 token1) caller
    (state.dex.lpBalance (pairHash env token0 token1) caller + liquidity) hash
  rw [← lpTotal_added caller state _ amountA amountB liquidity] at held
  by_cases own : hash = pairHash env token0 token1
  · subst own
    refine .moved adds.found (by simp [pair_added, deposited]) (.deposit _ _ _ adds.deposit) ?_
    simp only [if_true, credited] at held
    simp only [pool] at minted
    omega
  · refine .untouched (by simp [pair_added, own]) ?_
    simpa [own] using held

theorem Removes.effect {token0 token1 : Address} {liquidity amountA amountB : U256}
    {world : World}
    (removes : Removes env caller state token0 token1 liquidity amountA amountB world)
    (hash : Hash) :
    Effect state.dex
      (removed caller state (pairHash env token0 token1) liquidity amountA amountB) hash := by
  have burned := removes.withdrawal.shares
  have debited := BitVec.toNat_sub_of_le (BitVec.le_def.mpr removes.owned)
  have owned := removes.owned
  have held := lpTotal_setLpBalance state.dex (pairHash env token0 token1) caller
    (state.dex.lpBalance (pairHash env token0 token1) caller - liquidity) hash
  rw [← lpTotal_removed caller state _ liquidity amountA amountB] at held
  by_cases own : hash = pairHash env token0 token1
  · subst own
    refine .moved removes.found (by simp [pair_removed, withdrawn])
      (.withdrawal _ removes.withdrawal) ?_
    simp only [if_true, debited] at held
    simp only [pool] at burned
    omega
  · refine .untouched (by simp [pair_removed, own]) ?_
    simpa [own] using held

theorem Swaps.effect {token0 token1 tokenIn tokenOut : Address} {amountIn minAmountOut : U256}
    {recipient : Address} {afterFee amountOut : U256} {pair : TradingPair} {world : World}
    (swaps : Swaps env caller state token0 token1 tokenIn tokenOut amountIn minAmountOut recipient
      afterFee amountOut pair world) (hash : Hash) :
    Effect state.dex (state.dex.setPair (pairHash env token0 token1) pair) hash := by
  obtain ⟨token, shares, trade⟩ := swaps.trade
  by_cases own : hash = pairHash env token0 token1
  · subst own
    have left : (state.dex.setPair (pairHash env token0 token1) pair).pair
        (pairHash env token0 token1) = pair := by simp
    refine .moved swaps.found (by rw [left, token]) ?_ (by rw [left, shares]; rfl)
    rw [left]
    -- the second token may be the one that comes in
    rcases trade with trade | trade
    · exact .trade _ _ trade
    · exact .tradeBack _ _ trade
  · exact .untouched (by simp [own]) rfl

theorem perform_effect {input : Input World} (performed : perform env state input = .ok next)
    (hash : Hash) : Effect state.dex next.dex hash := by
  cases input with
  | outside world owner =>
    obtain rfl := Except.ok.inj performed
    exact .untouched rfl rfl
  | call caller call =>
    cases call with
    | createPair tokenA tokenB =>
      obtain ⟨-, -, free, rfl⟩ := (createPair_eq_ok env caller state).mp performed
      by_cases own : hash = hashOf env tokenA tokenB
      · subst own
        exact .created free _ _ (by simp only [pair_setPair, if_true]; rfl) rfl
      · exact .untouched (by simp [own]) rfl
    | addLiquidity tokenA tokenB amountA amountB minLiquidity =>
      obtain ⟨liquidity, -, adds, books⟩ := perform_addLiquidity performed
      rw [books]
      exact adds.effect hash
    | removeLiquidity tokenA tokenB liquidity minAmountA minAmountB =>
      obtain ⟨amountA, amountB, -, removes, books⟩ := perform_removeLiquidity performed
      rw [books]
      exact removes.effect hash
    | swap tokenIn tokenOut amountIn minAmountOut recipient =>
      obtain ⟨-, amountOut, afterFee, pair, swaps, books⟩ := perform_swap performed
      rw [books]
      exact swaps.effect hash
    | setTradingFee newFee =>
      obtain ⟨-, -, rfl⟩ := (setTradingFee_eq_ok caller state).mp performed
      exact .untouched rfl rfl
    | setFeeRecipient newRecipient =>
      obtain ⟨-, rfl⟩ := (setFeeRecipient_eq_ok caller state).mp performed
      exact .untouched rfl rfl

/-- The books of one pair: its shares are those of the holders, both reserves are filled
where there are shares, and there are none where there is no pair. -/
structure Booked (dex : ProtonDEX) (hash : Hash) : Prop where
  shares : (dex.pair hash).totalLiquidity.toNat = dex.lpTotal hash
  funded : (pool (dex.pair hash)).Funded
  absent : (dex.pair hash).tokenA = Address.zero → (dex.pair hash).totalLiquidity.toNat = 0

theorem Effect.booked {before after : ProtonDEX} {hash : Hash}
    (effect : Effect before after hash) (booked : Booked before hash) : Booked after hash := by
  have shares := booked.shares
  cases effect with
  | untouched pair held =>
    constructor
    · rw [pair, held, shares]
    · rw [pair]
      exact booked.funded
    · rw [pair]
      exact booked.absent
  | created free token0 token1 pair held =>
    have none := booked.absent free
    constructor
    · rw [pair, held, ← shares, none]
      rfl
    · rw [pair]
      intro positive
      exact absurd positive (Nat.lt_irrefl 0)
    · rw [pair]
      exact fun _ => rfl
  | moved found token move held =>
    constructor
    · omega
    · exact move.funded booked.funded
    · intro missing
      exact absurd (token ▸ missing) found

theorem booked_new (deployer feeRecipient : Address) (hash : Hash) :
    Booked (ProtonDEX.new deployer feeRecipient) hash where
  shares := rfl
  funded positive := absurd positive (Nat.lt_irrefl 0)
  absent _ := rfl

theorem visits_booked (env : Env World) (deployer feeRecipient : Address) (world : World)
    (inputs : List (Input World)) :
    Runs.Visits (step env) (fun state => ∀ hash, Booked state.dex hash)
      ⟨ProtonDEX.new deployer feeRecipient, world⟩ inputs :=
  @Transactions.visits_of_keeps _ _ _ (perform env) _ (fun _ _ => True)
    (fun _ _ _ booked _ performed hash => (perform_effect performed hash).booked (booked hash)) _
    (booked_new deployer feeRecipient) inputs
    ((Runs.meets_const _ (fun _ => True) _ inputs).mpr fun _ _ => trivial)

end Step

/-! ## Divisions -/

section Divisions
variable {World : Type} {env : Env World}

theorem avoids_safeTransfer (token recipient : Address) (amount : U256) (world : World) :
    Avoids .divisionByZero (safeTransfer env token recipient amount world) := by
  rw [Avoids, safeTransfer]
  split <;> simp

theorem avoids_safeTransferFrom (token owner recipient : Address) (amount : U256)
    (world : World) :
    Avoids .divisionByZero (safeTransferFrom env token owner recipient amount world) := by
  rw [Avoids, safeTransferFrom]
  split <;> simp

theorem avoids_sortTokens (tokenA tokenB : Address) :
    Avoids .divisionByZero (sortTokens tokenA tokenB) :=
  (avoids_reason _).bind fun _ _ => avoids_ok _ _

theorem avoids_mintedLiquidity {pair : TradingPair} (shared : pair.totalLiquidity ≠ 0)
    (funded : 0 < pair.reserveA.toNat ∧ 0 < pair.reserveB.toNat) (amountA amountB : U256) :
    Avoids .divisionByZero (mintedLiquidity pair amountA amountB) := by
  rw [mintedLiquidity, if_neg shared]
  refine (avoids_mulDiv _ _ funded.1).bind fun liquidityA _ => ?_
  exact (avoids_mulDiv _ _ funded.2).bind fun liquidityB _ => avoids_ok _ _

theorem avoids_exchange {pair : TradingPair}
    (funded : 0 < pair.reserveA.toNat ∧ 0 < pair.reserveB.toNat) (forward : Bool)
    (amountIn afterFee : U256) :
    Avoids .divisionByZero (exchange pair forward amountIn afterFee) := by
  cases forward with
  | true =>
    refine (avoids_quote funded.1 _ _).bind fun amountOut _ => ?_
    exact (avoids_add _ _).bind fun _ _ => (avoids_sub _ _).bind fun _ _ => avoids_ok _ _
  | false =>
    refine (avoids_quote funded.2 _ _).bind fun amountOut _ => ?_
    exact (avoids_add _ _).bind fun _ _ => (avoids_sub _ _).bind fun _ _ => avoids_ok _ _

/-- What the books of a pair with shares mean for the calls on it. -/
structure Divides (env : Env World) (state : State World) (tokenA tokenB : Address) : Prop where
  addLiquidity : ∀ caller amountA amountB minLiquidity,
    Avoids .divisionByZero
      (addLiquidity env caller state tokenA tokenB amountA amountB minLiquidity)
  removeLiquidity : ∀ caller liquidity minAmountA minAmountB,
    Avoids .divisionByZero
      (removeLiquidity env caller state tokenA tokenB liquidity minAmountA minAmountB)
  swap : ∀ caller amountIn minAmountOut recipient,
    Avoids .divisionByZero
      (swap env caller state tokenA tokenB amountIn minAmountOut recipient)
  output : ∀ caller amountIn minAmountOut recipient amountOut next,
    ProtonDEX.swap env caller state tokenA tokenB amountIn minAmountOut recipient =
        .ok (amountOut, next) →
      amountOut.toNat <
        (if tokenA = (sorted tokenA tokenB).1 then
            (state.dex.pair (hashOf env tokenA tokenB)).reserveB
          else (state.dex.pair (hashOf env tokenA tokenB)).reserveA).toNat

theorem divides_of_funded {state : State World} {tokenA tokenB : Address}
    (shared : (state.dex.pair (hashOf env tokenA tokenB)).totalLiquidity ≠ 0)
    (funded : 0 < (state.dex.pair (hashOf env tokenA tokenB)).reserveA.toNat ∧
      0 < (state.dex.pair (hashOf env tokenA tokenB)).reserveB.toNat) :
    Divides env state tokenA tokenB := by
  have positive : 0 < (state.dex.pair (hashOf env tokenA tokenB)).totalLiquidity.toNat :=
    (totalLiquidity_pos_iff _).mpr shared
  constructor
  · intro caller amountA amountB minLiquidity
    refine (avoids_sortTokens tokenA tokenB).bind fun tokens ordered => ?_
    obtain ⟨-, rfl⟩ := sortTokens_eq_ok.mp ordered
    refine (avoids_raised _).bind fun _ _ => ?_
    refine (avoids_safeTransferFrom _ _ _ _ _).bind fun between _ => ?_
    refine (avoids_safeTransferFrom _ _ _ _ _).bind fun world _ => ?_
    refine (avoids_mintedLiquidity shared funded _ _).bind fun liquidity _ => ?_
    refine (avoids_raised _).bind fun _ _ => (avoids_add _ _).bind fun _ _ => ?_
    refine (avoids_add _ _).bind fun _ _ => (avoids_add _ _).bind fun _ _ => ?_
    exact (avoids_add _ _).bind fun _ _ => avoids_ok _ _
  · intro caller liquidity minAmountA minAmountB
    refine (avoids_sortTokens tokenA tokenB).bind fun tokens ordered => ?_
    obtain ⟨-, rfl⟩ := sortTokens_eq_ok.mp ordered
    refine (avoids_raised _).bind fun _ _ => (avoids_raised _).bind fun _ _ => ?_
    refine (avoids_mulDiv _ _ positive).bind fun amountA _ => ?_
    refine (avoids_mulDiv _ _ positive).bind fun amountB _ => ?_
    refine (avoids_raised _).bind fun _ _ => (avoids_sub _ _).bind fun _ _ => ?_
    refine (avoids_sub _ _).bind fun _ _ => (avoids_sub _ _).bind fun _ _ => ?_
    refine (avoids_sub _ _).bind fun _ _ => (avoids_safeTransfer _ _ _ _).bind fun _ _ => ?_
    exact (avoids_safeTransfer _ _ _ _).bind fun _ _ => avoids_ok _ _
  · intro caller amountIn minAmountOut recipient
    refine (avoids_sortTokens tokenA tokenB).bind fun tokens ordered => ?_
    obtain ⟨-, rfl⟩ := sortTokens_eq_ok.mp ordered
    refine (avoids_raised _).bind fun _ _ => ?_
    refine (avoids_charge _ (by decide) _).bind fun afterFee _ => ?_
    refine (avoids_exchange funded _ _ _).bind fun exchanged _ => ?_
    refine (avoids_raised _).bind fun _ _ => ?_
    refine (avoids_safeTransferFrom _ _ _ _ _).bind fun _ _ => ?_
    refine (avoids_safeTransfer _ _ _ _).bind fun _ _ => (avoids_sub _ _).bind fun _ _ => ?_
    exact (avoids_safeTransfer _ _ _ _).bind fun _ _ => avoids_ok _ _
  · intro caller amountIn minAmountOut recipient amountOut next done
    obtain ⟨-, afterFee, pair, swaps, -⟩ := (swap_eq_ok env caller state).mp done
    have exchanged := swaps.exchanged
    by_cases forward : tokenA = (sorted tokenA tokenB).1
    · rw [decide_eq_true forward] at exchanged
      rw [if_pos forward, (exchange_forward exchanged).1]
      exact output_lt funded.1 funded.2
    · rw [decide_eq_false forward] at exchanged
      rw [if_neg forward, (exchange_backward exchanged).1]
      exact output_lt funded.2 funded.1

end Divisions

/-- In every state of every run the shares of each pair are those of its holders, a pair
with shares has both reserves filled, and no call on it divides by zero or swaps out a
whole reserve. -/
theorem books_hold {World : Type} (env : Env World) (deployer feeRecipient : Address)
    (world : World) (inputs : List (Input World)) :
    Runs.Visits (step env)
      (fun state =>
        (∀ hash, (state.dex.pair hash).totalLiquidity.toNat = state.dex.lpTotal hash ∧
          (0 < (state.dex.pair hash).totalLiquidity.toNat →
            0 < (state.dex.pair hash).reserveA.toNat ∧
              0 < (state.dex.pair hash).reserveB.toNat)) ∧
        ∀ tokenA tokenB,
          0 < (state.dex.pair (hashOf env tokenA tokenB)).totalLiquidity.toNat →
            Divides env state tokenA tokenB)
      ⟨ProtonDEX.new deployer feeRecipient, world⟩ inputs := by
  intro earlier later split
  have booked := visits_booked env deployer feeRecipient world inputs earlier later split
  refine ⟨fun hash => ⟨(booked hash).shares, (booked hash).funded⟩, ?_⟩
  intro tokenA tokenB shared
  exact divides_of_funded ((totalLiquidity_pos_iff _).mp shared) ((booked _).funded shared)

end ProtonChain.Solidity.ProtonDEX
