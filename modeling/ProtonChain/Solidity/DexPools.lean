import ProtonChain.Solidity.DexCalls

/-! The pairs of the exchange as pools.

A deposit, a withdrawal or a swap moves one pool as its name says, so that a share of the
pool is worth no less afterwards.
-/

set_option autoImplicit false

namespace ProtonChain.Solidity.ProtonDEX

open Checked ConstantProduct

/-! ## Pricing -/

theorem exchange_forward {pair after : TradingPair} {amountIn afterFee amountOut : U256}
    (exchanged : exchange pair true amountIn afterFee = .ok (amountOut, after)) :
    amountOut.toNat = output afterFee.toNat pair.reserveA.toNat pair.reserveB.toNat ∧
      ∃ reserveA reserveB,
        reserveA.toNat = pair.reserveA.toNat + amountIn.toNat ∧
        reserveB.toNat + amountOut.toNat = pair.reserveB.toNat ∧
        after = { pair with reserveA := reserveA, reserveB := reserveB } := by
  simp only [exchange, if_true, bind_eq_ok, quote_eq_ok, add_eq_ok, sub_eq_ok,
    pure_eq_ok] at exchanged
  obtain ⟨priced, ⟨-, -, -, quotient⟩, reserveA, paid, reserveB, left, same⟩ := exchanged
  obtain ⟨rfl, rfl⟩ := Prod.mk.inj same
  exact ⟨quotient, reserveA, reserveB, paid, left, rfl⟩

theorem exchange_backward {pair after : TradingPair} {amountIn afterFee amountOut : U256}
    (exchanged : exchange pair false amountIn afterFee = .ok (amountOut, after)) :
    amountOut.toNat = output afterFee.toNat pair.reserveB.toNat pair.reserveA.toNat ∧
      ∃ reserveA reserveB,
        reserveB.toNat = pair.reserveB.toNat + amountIn.toNat ∧
        reserveA.toNat + amountOut.toNat = pair.reserveA.toNat ∧
        after = { pair with reserveA := reserveA, reserveB := reserveB } := by
  simp only [exchange, Bool.false_eq_true, if_false, bind_eq_ok, quote_eq_ok, add_eq_ok,
    sub_eq_ok, pure_eq_ok] at exchanged
  obtain ⟨priced, ⟨-, -, -, quotient⟩, reserveB, paid, reserveA, left, same⟩ := exchanged
  obtain ⟨rfl, rfl⟩ := Prod.mk.inj same
  exact ⟨quotient, reserveA, reserveB, paid, left, rfl⟩

theorem exchange_tokens {pair after : TradingPair} {forward : Bool}
    {amountIn afterFee amountOut : U256}
    (exchanged : exchange pair forward amountIn afterFee = .ok (amountOut, after)) :
    after.tokenA = pair.tokenA ∧ after.tokenB = pair.tokenB := by
  cases forward with
  | true =>
    obtain ⟨-, reserveA, reserveB, -, -, rfl⟩ := exchange_forward exchanged
    exact ⟨rfl, rfl⟩
  | false =>
    obtain ⟨-, reserveA, reserveB, -, -, rfl⟩ := exchange_backward exchanged
    exact ⟨rfl, rfl⟩

/-- An exchange trades in one direction or the other, and keeps the shares. -/
theorem exchange_trade {pair after : TradingPair} {forward : Bool}
    {amountIn afterFee amountOut : U256} (charged : afterFee.toNat ≤ amountIn.toNat)
    (exchanged : exchange pair forward amountIn afterFee = .ok (amountOut, after)) :
    after.tokenA = pair.tokenA ∧ after.totalLiquidity = pair.totalLiquidity ∧
      (Pool.Trade (pool pair) (pool after) amountIn.toNat afterFee.toNat ∨
        Pool.Trade (pool pair).mirror (pool after).mirror amountIn.toNat afterFee.toNat) := by
  cases forward with
  | true =>
    obtain ⟨priced, reserveA, reserveB, paid, left, rfl⟩ := exchange_forward exchanged
    exact ⟨rfl, rfl, .inl ⟨charged, paid, priced ▸ left, rfl⟩⟩
  | false =>
    obtain ⟨priced, reserveA, reserveB, paid, left, rfl⟩ := exchange_backward exchanged
    exact ⟨rfl, rfl, .inr ⟨charged, paid, priced ▸ left, rfl⟩⟩

theorem sqrt_zero : sqrt 0 = .ok 0 := by
  have successor : (add 0 1 : Outcome DexError U256) = .ok 1 := rfl
  have half : (div 1 2 : Outcome DexError U256) = .ok 0 := rfl
  rw [sqrt, successor, ok_bind, half, ok_bind, sqrtLoop]
  rfl

/-- A first deposit mints nothing unless both amounts are positive. -/
theorem minted_first {pair : TradingPair} {amountA amountB liquidity : U256}
    (none : pair.totalLiquidity = 0)
    (minted : mintedLiquidity pair amountA amountB = .ok liquidity)
    (positive : 0 < liquidity.toNat) : 0 < amountA.toNat ∧ 0 < amountB.toNat := by
  rw [mintedLiquidity, if_pos none, bind_eq_ok] at minted
  obtain ⟨product, exact, root⟩ := minted
  rw [mul_eq_ok] at exact
  -- the root of an empty product would mint nothing
  have filled : 0 < product.toNat := by
    apply Nat.pos_of_ne_zero
    intro zero
    obtain rfl : product = 0 := BitVec.eq_of_toNat_eq (by simpa using zero)
    rw [sqrt_zero] at root
    obtain rfl := Except.ok.inj root
    simp at positive
  rw [exact] at filled
  exact ⟨Nat.pos_of_mul_pos_right filled, Nat.pos_of_mul_pos_left filled⟩

/-- A later deposit mints no more than either amount is worth. -/
theorem minted_later {pair : TradingPair} {amountA amountB liquidity : U256}
    (shared : pair.totalLiquidity ≠ 0)
    (minted : mintedLiquidity pair amountA amountB = .ok liquidity) :
    liquidity.toNat ≤ amountA.toNat * pair.totalLiquidity.toNat / pair.reserveA.toNat ∧
      liquidity.toNat ≤ amountB.toNat * pair.totalLiquidity.toNat / pair.reserveB.toNat := by
  rw [mintedLiquidity, if_neg shared] at minted
  simp only [bind_eq_ok, mulDiv_eq_ok, pure_eq_ok] at minted
  obtain ⟨liquidityA, ⟨-, -, quoteA⟩, liquidityB, ⟨-, -, quoteB⟩, rfl⟩ := minted
  rw [← quoteA, ← quoteB]
  split
  next less =>
    have below := BitVec.lt_def.mp less
    omega
  next more =>
    have above := BitVec.not_lt.mp more
    rw [BitVec.le_def] at above
    omega

/-! ## Calls on pools -/

section Calls
variable {World : Type} {env : Env World} {caller : Address} {state next : State World}

theorem totalLiquidity_pos_iff (pair : TradingPair) :
    0 < (pool pair).shares ↔ pair.totalLiquidity ≠ 0 := by
  rw [Nat.pos_iff_ne_zero, ← BitVec.toNat_ne_iff_ne]
  rfl

theorem Adds.deposit {token0 token1 : Address} {amountA amountB minLiquidity liquidity : U256}
    {world : World}
    (adds : Adds env caller state token0 token1 amountA amountB minLiquidity liquidity world) :
    Pool.Deposit (pool (state.dex.pair (pairHash env token0 token1)))
      (pool ((added caller state (pairHash env token0 token1) amountA amountB liquidity).pair
        (pairHash env token0 token1)))
      amountA.toNat amountB.toNat liquidity.toNat := by
  rw [pair_added, if_pos rfl]
  constructor
  · simp [deposited, pool, BitVec.toNat_add_of_lt adds.reserveA]
  · simp [deposited, pool, BitVec.toNat_add_of_lt adds.reserveB]
  · simp [deposited, pool, BitVec.toNat_add_of_lt adds.total]
  · intro zero positive
    have none : (state.dex.pair (pairHash env token0 token1)).totalLiquidity = 0 := by
      by_contra shared
      have := (totalLiquidity_pos_iff _).mpr shared
      omega
    exact minted_first none adds.minted positive
  · intro shared
    exact (minted_later ((totalLiquidity_pos_iff _).mp shared) adds.minted).1
  · intro shared
    exact (minted_later ((totalLiquidity_pos_iff _).mp shared) adds.minted).2

theorem Removes.withdrawal {token0 token1 : Address} {liquidity amountA amountB : U256}
    {world : World}
    (removes : Removes env caller state token0 token1 liquidity amountA amountB world) :
    Pool.Withdrawal (pool (state.dex.pair (pairHash env token0 token1)))
      (pool ((removed caller state (pairHash env token0 token1) liquidity amountA amountB).pair
        (pairHash env token0 token1)))
      liquidity.toNat := by
  have quoteA := (mulDiv_eq_ok.mp removes.quotedA).2.2
  have quoteB := (mulDiv_eq_ok.mp removes.quotedB).2.2
  have leftA := BitVec.toNat_sub_of_le (BitVec.le_def.mpr (mulDiv_le removes.part removes.quotedA))
  have leftB := BitVec.toNat_sub_of_le (BitVec.le_def.mpr (mulDiv_le removes.part removes.quotedB))
  have burned := BitVec.toNat_sub_of_le (BitVec.le_def.mpr removes.part)
  have belowA := mulDiv_le removes.part removes.quotedA
  have belowB := mulDiv_le removes.part removes.quotedB
  have part := removes.part
  rw [pair_removed, if_pos rfl]
  constructor
  · simp only [withdrawn, pool, leftA, portion, ← quoteA]
    omega
  · simp only [withdrawn, pool, leftB, portion, ← quoteB]
    omega
  · simp only [withdrawn, pool, burned]
    omega

theorem Swaps.trade {token0 token1 tokenIn tokenOut : Address} {amountIn minAmountOut : U256}
    {recipient : Address} {afterFee amountOut : U256} {pair : TradingPair} {world : World}
    (swaps : Swaps env caller state token0 token1 tokenIn tokenOut amountIn minAmountOut recipient
      afterFee amountOut pair world) :
    pair.tokenA = (state.dex.pair (pairHash env token0 token1)).tokenA ∧
      pair.totalLiquidity = (state.dex.pair (pairHash env token0 token1)).totalLiquidity ∧
      (Pool.Trade (pool (state.dex.pair (pairHash env token0 token1))) (pool pair) amountIn.toNat
          afterFee.toNat ∨
        Pool.Trade (pool (state.dex.pair (pairHash env token0 token1))).mirror (pool pair).mirror
          amountIn.toNat afterFee.toNat) :=
  exchange_trade (amountInWithFee_le swaps.charged) swaps.exchanged

end Calls

/-! ## The product for each share -/

/-- For every state of the exchange and every pair with shares: a deposit or a withdrawal
does not lower the product of the reserves for each squared share, and a swap does not
lower the product. -/
theorem product_kept {World : Type} (env : Env World) (caller : Address) (state : State World)
    (tokenA tokenB : Address)
    (shared : 0 < (state.dex.pair (hashOf env tokenA tokenB)).totalLiquidity.toNat) :
    let before := pool (state.dex.pair (hashOf env tokenA tokenB))
    let after := fun next : State World => pool (next.dex.pair (hashOf env tokenA tokenB))
    (∀ amountA amountB minLiquidity liquidity next,
        addLiquidity env caller state tokenA tokenB amountA amountB minLiquidity =
          .ok (liquidity, next) → before.Keeps (after next)) ∧
      (∀ liquidity minAmountA minAmountB amounts next,
        removeLiquidity env caller state tokenA tokenB liquidity minAmountA minAmountB =
          .ok (amounts, next) → before.Keeps (after next)) ∧
      ∀ amountIn minAmountOut recipient amountOut next,
        swap env caller state tokenA tokenB amountIn minAmountOut recipient =
          .ok (amountOut, next) →
            before.Keeps (after next) ∧ before.product ≤ (after next).product := by
  intro before after
  refine ⟨?_, ?_, ?_⟩
  · intro amountA amountB minLiquidity liquidity next done
    obtain ⟨-, adds, books⟩ := (addLiquidity_eq_ok env caller state).mp done
    simp only [after, books]
    exact adds.deposit.keeps shared
  · rintro liquidity minAmountA minAmountB ⟨amountA, amountB⟩ next done
    obtain ⟨-, removes, -, books⟩ := (removeLiquidity_eq_ok env caller state).mp done
    simp only [after, books]
    exact removes.withdrawal.keeps
  · intro amountIn minAmountOut recipient amountOut next done
    obtain ⟨-, afterFee, pair, swaps, books⟩ := (swap_eq_ok env caller state).mp done
    have left : after next = pool pair := by
      simp only [after, books, pair_setPair, if_true]
    rw [left]
    rcases swaps.trade.2.2 with trade | trade
    · exact ⟨trade.keeps, trade.product_le⟩
    · have product := trade.product_le
      rw [Pool.product_mirror, Pool.product_mirror] at product
      exact ⟨trade.keeps.of_mirror, product⟩

namespace Sample

/-- Address 3 swaps 1000 of token 1. -/
def trading : Input Sample.Ledger :=
  .call (Sample.address 3) (.swap (Sample.address 1) (Sample.address 2) 1000 0 (Sample.address 3))

def traded : State Sample.Ledger := (step Sample.env Sample.opened trading).2

def hash : Hash := hashOf Sample.env (Sample.address 1) (Sample.address 2)

end Sample

theorem product_kept_sample :
    (pool (Sample.opened.dex.pair Sample.hash)).product ≤
      (pool (Sample.traded.dex.pair Sample.hash)).product := by
  have succeeds : Transactions.Succeeds (perform Sample.env) Sample.opened Sample.trading := by
    decide +kernel
  obtain ⟨next, performed⟩ := succeeds
  rw [Sample.traded, step, Transactions.step_of_ok performed]
  simp only [Sample.trading, perform, bind_eq_ok, pure_eq_ok] at performed
  obtain ⟨⟨amountOut, _⟩, done, rfl⟩ := performed
  exact ((product_kept Sample.env (Sample.address 3) Sample.opened (Sample.address 1)
    (Sample.address 2) (by decide +kernel)).2.2 _ _ _ _ _ done).2

/-! ## Joining and leaving -/

/-- For every state of the exchange, every pair with shares and every deposit: the liquidity
it mints, taken out again right away, returns no more of either token than was given. The
two calls may name the tokens in either order. -/
theorem leaving_returns_at_most_joined {World : Type} (env : Env World) (caller : Address)
    (state joined left : State World) (tokenA tokenB tokenC tokenD : Address)
    (amountA amountB minLiquidity liquidity minAmountA minAmountB returnedA returnedB : U256)
    (shared : 0 < (state.dex.pair (hashOf env tokenA tokenB)).totalLiquidity.toNat)
    (same : sorted tokenC tokenD = sorted tokenA tokenB)
    (join : addLiquidity env caller state tokenA tokenB amountA amountB minLiquidity =
      .ok (liquidity, joined))
    (leave : removeLiquidity env caller joined tokenC tokenD liquidity minAmountA minAmountB =
      .ok ((returnedA, returnedB), left)) :
    returnedA.toNat ≤ amountA.toNat ∧ returnedB.toNat ≤ amountB.toNat := by
  obtain ⟨-, adds, books⟩ := (addLiquidity_eq_ok env caller state).mp join
  obtain ⟨-, removes, -, -⟩ := (removeLiquidity_eq_ok env caller joined).mp leave
  have paid := removes.paidOut
  rw [same, books] at paid
  rw [paid.1, paid.2]
  exact adds.deposit.portion_le shared

/-- Address 3 gives 11 and 20 more, and leaves with the 14 shares of them for 9 and 19. -/
theorem leaving_sample :
    ∃ joined left returnedA returnedB,
      addLiquidity Sample.env (Sample.address 3) Sample.opened (Sample.address 1)
          (Sample.address 2) 11 20 0 = .ok (14, joined) ∧
        removeLiquidity Sample.env (Sample.address 3) joined (Sample.address 2)
          (Sample.address 1) 14 0 0 = .ok ((returnedA, returnedB), left) ∧
        returnedA.toNat ≤ (11 : U256).toNat ∧ returnedB.toNat ≤ (20 : U256).toNat := by
  have paid : (do
      let (liquidity, joined) ← addLiquidity Sample.env (Sample.address 3) Sample.opened
        (Sample.address 1) (Sample.address 2) 11 20 0
      let (amounts, _) ← removeLiquidity Sample.env (Sample.address 3) joined (Sample.address 2)
        (Sample.address 1) liquidity 0 0
      pure (liquidity, amounts)) = .ok (14, (9, 19)) := by decide +kernel
  simp only [bind_eq_ok, pure_eq_ok] at paid
  obtain ⟨⟨liquidity, joined⟩, join, ⟨⟨returnedA, returnedB⟩, left⟩, leave, same⟩ := paid
  obtain rfl := (Prod.mk.inj same).1
  have sameTokens : sorted (Sample.address 2) (Sample.address 1) =
      sorted (Sample.address 1) (Sample.address 2) := sorted_comm (by decide)
  exact ⟨joined, left, returnedA, returnedB, join, leave,
    leaving_returns_at_most_joined Sample.env (Sample.address 3) Sample.opened joined left
      (Sample.address 1) (Sample.address 2) (Sample.address 2) (Sample.address 1) 11 20 0 14 0 0
      returnedA returnedB (by decide +kernel) sameTokens join leave⟩

end ProtonChain.Solidity.ProtonDEX
