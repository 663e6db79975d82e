import ProtonChain.Solidity.Dex

/-! What the calls of the exchange do where they go through.

Each call has one law: when it is accepted, and the books and the world it then leaves.
Everything about runs is derived from these laws.
-/

set_option autoImplicit false

namespace ProtonChain.Solidity.ProtonDEX

open Checked ConstantProduct

/-! ## Tokens in order -/

def sorted (tokenA tokenB : Address) : Address × Address :=
  if tokenA.value < tokenB.value then (tokenA, tokenB) else (tokenB, tokenA)

theorem sortTokens_eq_ok {tokenA tokenB : Address} {tokens : Address × Address} :
    sortTokens tokenA tokenB = .ok tokens ↔ tokenA ≠ tokenB ∧ sorted tokenA tokenB = tokens := by
  simp only [sortTokens, bind_eq_ok, ensure_eq_ok, pure_eq_ok, exists_const, sorted]

theorem sorted_comm {tokenA tokenB : Address} (apart : tokenA ≠ tokenB) :
    sorted tokenA tokenB = sorted tokenB tokenA := by
  have values : tokenA.value ≠ tokenB.value := fun same => apart (Address.value_injective same)
  rcases Nat.lt_or_gt_of_ne values with less | more
  · rw [sorted, sorted, if_pos less, if_neg (Nat.lt_asymm less)]
  · rw [sorted, sorted, if_pos more, if_neg (Nat.lt_asymm more)]

theorem sorted_eq (tokenA tokenB : Address) :
    sorted tokenA tokenB = (tokenA, tokenB) ∨ sorted tokenA tokenB = (tokenB, tokenA) := by
  rw [sorted]
  split
  · exact .inl rfl
  · exact .inr rfl

def pool (pair : TradingPair) : Pool :=
  ⟨pair.reserveA.toNat, pair.reserveB.toNat, pair.totalLiquidity.toNat⟩

section Calls
variable {World : Type} (env : Env World) (caller : Address) (state : State World)

def hashOf (tokenA tokenB : Address) : Hash :=
  pairHash env (sorted tokenA tokenB).1 (sorted tokenA tokenB).2

@[simp] theorem safeTransfer_eq_ok {token recipient : Address} {amount : U256}
    {world next : World} :
    safeTransfer env token recipient amount world = .ok next ↔
      env.erc20.transfer world token env.self recipient amount = some next := by
  rw [safeTransfer]
  split <;> simp [*]

@[simp] theorem safeTransferFrom_eq_ok {token owner recipient : Address} {amount : U256}
    {world next : World} :
    safeTransferFrom env token owner recipient amount world = .ok next ↔
      env.erc20.transferFrom world token env.self owner recipient amount = some next := by
  rw [safeTransferFrom]
  split <;> simp [*]

/-! ## Pairs -/

def freshPair (token0 token1 : Address) : TradingPair where
  tokenA := token0
  tokenB := token1
  reserveA := 0
  reserveB := 0
  totalLiquidity := 0
  encryptedVolume := 0
  active := true

theorem createPair_eq_ok {tokenA tokenB : Address} {next : State World} :
    createPair env caller state tokenA tokenB = .ok next ↔
      caller = state.dex.owner ∧ tokenA ≠ tokenB ∧
        (state.dex.pair (hashOf env tokenA tokenB)).tokenA = Address.zero ∧
        next = { state with
          dex := state.dex.setPair (hashOf env tokenA tokenB)
            (freshPair (sorted tokenA tokenB).1 (sorted tokenA tokenB).2) } := by
  simp only [createPair, bind_eq_ok, ensure_eq_ok, sortTokens_eq_ok, pure_eq_ok]
  constructor
  · rintro ⟨-, owner, -, apart, tokens, ⟨-, rfl⟩, -, free, rfl⟩
    exact ⟨owner, apart, free, rfl⟩
  · rintro ⟨owner, apart, free, rfl⟩
    exact ⟨(), owner, (), apart, _, ⟨apart, rfl⟩, (), free, rfl⟩

/-! ## Deposits -/

def deposited (pair : TradingPair) (amountA amountB liquidity : U256) : TradingPair :=
  { pair with
    reserveA := pair.reserveA + amountA
    reserveB := pair.reserveB + amountB
    totalLiquidity := pair.totalLiquidity + liquidity }

def added (hash : Hash) (amountA amountB liquidity : U256) : ProtonDEX :=
  (state.dex.setPair hash
    (deposited (state.dex.pair hash) amountA amountB liquidity)).setLpBalance
      hash caller (state.dex.lpBalance hash caller + liquidity)

theorem pair_added (hash : Hash) (amountA amountB liquidity : U256) (other : Hash) :
    (added caller state hash amountA amountB liquidity).pair other =
      if other = hash then deposited (state.dex.pair hash) amountA amountB liquidity
      else state.dex.pair other :=
  pair_setPair state.dex hash _ other

theorem lpTotal_added (hash : Hash) (amountA amountB liquidity : U256) (other : Hash) :
    (added caller state hash amountA amountB liquidity).lpTotal other =
      (state.dex.setLpBalance hash caller (state.dex.lpBalance hash caller + liquidity)).lpTotal
        other := rfl

/-- A deposit of amounts of the sorted tokens is accepted for this much liquidity: the pair
exists, the tokens let both amounts go, and everything fits. -/
structure Adds (token0 token1 : Address) (amountA amountB minLiquidity liquidity : U256)
    (world : World) : Prop where
  found : (state.dex.pair (pairHash env token0 token1)).tokenA ≠ Address.zero
  paid : ∃ between,
    env.erc20.transferFrom state.world token0 env.self caller env.self amountA = some between ∧
      env.erc20.transferFrom between token1 env.self caller env.self amountB = some world
  minted : mintedLiquidity (state.dex.pair (pairHash env token0 token1)) amountA amountB =
    .ok liquidity
  enough : minLiquidity.toNat ≤ liquidity.toNat
  reserveA : (state.dex.pair (pairHash env token0 token1)).reserveA.toNat + amountA.toNat < 2 ^ 256
  reserveB : (state.dex.pair (pairHash env token0 token1)).reserveB.toNat + amountB.toNat < 2 ^ 256
  total : (state.dex.pair (pairHash env token0 token1)).totalLiquidity.toNat + liquidity.toNat <
    2 ^ 256
  balance : (state.dex.lpBalance (pairHash env token0 token1) caller).toNat + liquidity.toNat <
    2 ^ 256

theorem addLiquidity_eq_ok {tokenA tokenB : Address} {amountA amountB minLiquidity liquidity : U256}
    {next : State World} :
    addLiquidity env caller state tokenA tokenB amountA amountB minLiquidity =
        .ok (liquidity, next) ↔
      tokenA ≠ tokenB ∧
        Adds env caller state (sorted tokenA tokenB).1 (sorted tokenA tokenB).2 amountA amountB
          minLiquidity liquidity next.world ∧
        next.dex = added caller state (hashOf env tokenA tokenB) amountA amountB liquidity := by
  simp only [addLiquidity, bind_eq_ok, ensure_eq_ok, sortTokens_eq_ok, safeTransferFrom_eq_ok,
    add_eq_ok_iff_fits, pure_eq_ok]
  constructor
  · rintro ⟨tokens, ⟨apart, rfl⟩, -, found, between, first, world, second, minted, priced, -,
      enough, _, ⟨reserveA, rfl⟩, _, ⟨reserveB, rfl⟩, _, ⟨total, rfl⟩, _, ⟨balance, rfl⟩, same⟩
    obtain ⟨rfl, rfl⟩ := Prod.mk.inj same
    exact ⟨apart, ⟨found, ⟨between, first, second⟩, priced, enough, reserveA, reserveB, total,
      balance⟩, rfl⟩
  · rintro ⟨apart, adds, books⟩
    obtain ⟨between, first, second⟩ := adds.paid
    obtain ⟨dex, world⟩ := next
    obtain rfl : dex = _ := books
    exact ⟨_, ⟨apart, rfl⟩, (), adds.found, between, first, world, second, liquidity, adds.minted,
      (), adds.enough, _, ⟨adds.reserveA, rfl⟩, _, ⟨adds.reserveB, rfl⟩, _, ⟨adds.total, rfl⟩, _,
      ⟨adds.balance, rfl⟩, rfl⟩

/-! ## Withdrawals -/

def withdrawn (pair : TradingPair) (liquidity amountA amountB : U256) : TradingPair :=
  { pair with
    reserveA := pair.reserveA - amountA
    reserveB := pair.reserveB - amountB
    totalLiquidity := pair.totalLiquidity - liquidity }

def removed (hash : Hash) (liquidity amountA amountB : U256) : ProtonDEX :=
  (state.dex.setPair hash
    (withdrawn (state.dex.pair hash) liquidity amountA amountB)).setLpBalance
      hash caller (state.dex.lpBalance hash caller - liquidity)

theorem pair_removed (hash : Hash) (liquidity amountA amountB : U256) (other : Hash) :
    (removed caller state hash liquidity amountA amountB).pair other =
      if other = hash then withdrawn (state.dex.pair hash) liquidity amountA amountB
      else state.dex.pair other :=
  pair_setPair state.dex hash _ other

theorem lpTotal_removed (hash : Hash) (liquidity amountA amountB : U256) (other : Hash) :
    (removed caller state hash liquidity amountA amountB).lpTotal other =
      (state.dex.setLpBalance hash caller (state.dex.lpBalance hash caller - liquidity)).lpTotal
        other := rfl

/-- A withdrawal of liquidity is accepted for these amounts, whatever minimum it names. -/
structure Removes (token0 token1 : Address) (liquidity amountA amountB : U256) (world : World) :
    Prop where
  found : (state.dex.pair (pairHash env token0 token1)).tokenA ≠ Address.zero
  owned : liquidity.toNat ≤ (state.dex.lpBalance (pairHash env token0 token1) caller).toNat
  quotedA : (mulDiv liquidity (state.dex.pair (pairHash env token0 token1)).reserveA
    (state.dex.pair (pairHash env token0 token1)).totalLiquidity : Outcome DexError U256) =
      .ok amountA
  quotedB : (mulDiv liquidity (state.dex.pair (pairHash env token0 token1)).reserveB
    (state.dex.pair (pairHash env token0 token1)).totalLiquidity : Outcome DexError U256) =
      .ok amountB
  part : liquidity.toNat ≤ (state.dex.pair (pairHash env token0 token1)).totalLiquidity.toNat
  paid : ∃ between,
    env.erc20.transfer state.world token0 env.self caller amountA = some between ∧
      env.erc20.transfer between token1 env.self caller amountB = some world

def paidOut (pair : TradingPair) (liquidity reserve : U256) : Nat :=
  portion liquidity.toNat pair.totalLiquidity.toNat reserve.toNat

variable {env caller state} in
theorem Removes.paidOut {token0 token1 : Address} {liquidity amountA amountB : U256}
    {world : World}
    (removes : Removes env caller state token0 token1 liquidity amountA amountB world) :
    amountA.toNat = paidOut (state.dex.pair (pairHash env token0 token1)) liquidity
        (state.dex.pair (pairHash env token0 token1)).reserveA ∧
      amountB.toNat = paidOut (state.dex.pair (pairHash env token0 token1)) liquidity
        (state.dex.pair (pairHash env token0 token1)).reserveB :=
  ⟨(mulDiv_eq_ok.mp removes.quotedA).2.2, (mulDiv_eq_ok.mp removes.quotedB).2.2⟩

/-- A part of the shares is worth no more than the reserve. -/
theorem mulDiv_le {liquidity reserve total amount : U256} (part : liquidity.toNat ≤ total.toNat)
    (quoted : (mulDiv liquidity reserve total : Outcome DexError U256) = .ok amount) :
    amount.toNat ≤ reserve.toNat := by
  rw [(mulDiv_eq_ok.mp quoted).2.2]
  exact portion_le part

theorem removeLiquidity_eq_ok {tokenA tokenB : Address}
    {liquidity minAmountA minAmountB amountA amountB : U256} {next : State World} :
    removeLiquidity env caller state tokenA tokenB liquidity minAmountA minAmountB =
        .ok ((amountA, amountB), next) ↔
      tokenA ≠ tokenB ∧
        Removes env caller state (sorted tokenA tokenB).1 (sorted tokenA tokenB).2 liquidity
          amountA amountB next.world ∧
        (minAmountA.toNat ≤ amountA.toNat ∧ minAmountB.toNat ≤ amountB.toNat) ∧
        next.dex = removed caller state (hashOf env tokenA tokenB) liquidity amountA amountB := by
  simp only [removeLiquidity, bind_eq_ok, ensure_eq_ok, sortTokens_eq_ok, safeTransfer_eq_ok,
    sub_eq_ok_iff_le, pure_eq_ok]
  constructor
  · rintro ⟨tokens, ⟨apart, rfl⟩, -, found, -, owned, quoteA, quotedA, quoteB, quotedB, -, enough,
      _, ⟨-, rfl⟩, _, ⟨-, rfl⟩, _, ⟨-, rfl⟩, _, ⟨part, rfl⟩, between, first, world, second, same⟩
    obtain ⟨amounts, rfl⟩ := Prod.mk.inj same
    obtain ⟨rfl, rfl⟩ := Prod.mk.inj amounts
    exact ⟨apart, ⟨found, owned, quotedA, quotedB, part, between, first, second⟩, enough, rfl⟩
  · rintro ⟨apart, removes, enough, books⟩
    obtain ⟨between, first, second⟩ := removes.paid
    obtain ⟨dex, world⟩ := next
    obtain rfl : dex = _ := books
    exact ⟨_, ⟨apart, rfl⟩, (), removes.found, (), removes.owned, amountA, removes.quotedA,
      amountB, removes.quotedB, (), enough, _, ⟨removes.owned, rfl⟩,
      _, ⟨mulDiv_le removes.part removes.quotedA, rfl⟩,
      _, ⟨mulDiv_le removes.part removes.quotedB, rfl⟩, _, ⟨removes.part, rfl⟩,
      between, first, world, second, rfl⟩

/-! ## Swaps -/

theorem amountInWithFee_le {dex : ProtonDEX} {amountIn afterFee : U256}
    (charged : amountInWithFee dex amountIn = .ok afterFee) :
    afterFee.toNat ≤ amountIn.toNat := charge_le charged

/-- A swap is accepted for this output and leaves this pair and this world. -/
structure Swaps (token0 token1 tokenIn tokenOut : Address) (amountIn minAmountOut : U256)
    (recipient : Address) (afterFee amountOut : U256) (pair : TradingPair) (world : World) :
    Prop where
  found : (state.dex.pair (pairHash env token0 token1)).tokenA ≠ Address.zero
  charged : amountInWithFee state.dex amountIn = .ok afterFee
  exchanged : exchange (state.dex.pair (pairHash env token0 token1)) (tokenIn = token0) amountIn
    afterFee = .ok (amountOut, pair)
  enough : minAmountOut.toNat ≤ amountOut.toNat
  paid : ∃ taken given,
    env.erc20.transferFrom state.world tokenIn env.self caller env.self amountIn = some taken ∧
      env.erc20.transfer taken tokenOut env.self recipient amountOut = some given ∧
      env.erc20.transfer given tokenIn env.self state.dex.feeRecipient (amountIn - afterFee) =
        some world

theorem swap_eq_ok {tokenIn tokenOut : Address} {amountIn minAmountOut : U256}
    {recipient : Address} {amountOut : U256} {next : State World} :
    swap env caller state tokenIn tokenOut amountIn minAmountOut recipient =
        .ok (amountOut, next) ↔
      tokenIn ≠ tokenOut ∧ ∃ afterFee pair,
        Swaps env caller state (sorted tokenIn tokenOut).1 (sorted tokenIn tokenOut).2 tokenIn
          tokenOut amountIn minAmountOut recipient afterFee amountOut pair next.world ∧
        next.dex = state.dex.setPair (hashOf env tokenIn tokenOut) pair := by
  simp only [swap, bind_eq_ok, ensure_eq_ok, sortTokens_eq_ok, safeTransfer_eq_ok,
    safeTransferFrom_eq_ok, sub_eq_ok_iff_le, pure_eq_ok]
  constructor
  · rintro ⟨tokens, ⟨apart, rfl⟩, -, found, afterFee, charged, ⟨amountOut', pair⟩, exchanged, -,
      enough, taken, first, given, second, _, ⟨-, rfl⟩, world, third, same⟩
    obtain ⟨rfl, rfl⟩ := Prod.mk.inj same
    exact ⟨apart, afterFee, pair, ⟨found, charged, exchanged, enough, taken, given, first, second,
      third⟩, rfl⟩
  · rintro ⟨apart, afterFee, pair, swaps, books⟩
    obtain ⟨taken, given, first, second, third⟩ := swaps.paid
    obtain ⟨dex, world⟩ := next
    obtain rfl : dex = _ := books
    exact ⟨_, ⟨apart, rfl⟩, (), swaps.found, afterFee, swaps.charged, (amountOut, pair),
      swaps.exchanged, (), swaps.enough, taken, first, given, second, _,
      ⟨amountInWithFee_le swaps.charged, rfl⟩, world, third, rfl⟩

theorem calculateSwapAmount_of_found {dex : ProtonDEX} {tokenIn tokenOut : Address}
    {amountIn afterFee : U256} (apart : tokenIn ≠ tokenOut)
    (found : (dex.pair (hashOf env tokenIn tokenOut)).tokenA ≠ Address.zero)
    (charged : amountInWithFee dex amountIn = .ok afterFee) :
    calculateSwapAmount env dex tokenIn tokenOut amountIn =
      if tokenIn = (sorted tokenIn tokenOut).1 then
        quote afterFee (dex.pair (hashOf env tokenIn tokenOut)).reserveA
          (dex.pair (hashOf env tokenIn tokenOut)).reserveB
      else
        quote afterFee (dex.pair (hashOf env tokenIn tokenOut)).reserveB
          (dex.pair (hashOf env tokenIn tokenOut)).reserveA := by
  have tokens : sortTokens tokenIn tokenOut = .ok (sorted tokenIn tokenOut) :=
    sortTokens_eq_ok.mpr ⟨apart, rfl⟩
  rw [calculateSwapAmount, tokens]
  change (if (dex.pair (hashOf env tokenIn tokenOut)).tokenA = Address.zero then _ else
    amountInWithFee dex amountIn >>= _) = _
  rw [if_neg found, charged]
  rfl

/-! ## Parameters -/

theorem setTradingFee_eq_ok {newFee : U256} {next : State World} :
    setTradingFee caller state newFee = .ok next ↔
      caller = state.dex.owner ∧ newFee.toNat ≤ 1000 ∧
        next = { state with dex := { state.dex with tradingFee := newFee } } := by
  simp only [setTradingFee, bind_eq_ok, ensure_eq_ok, pure_eq_ok, exists_const]
  rw [eq_comm (b := next)]

theorem setFeeRecipient_eq_ok {newRecipient : Address} {next : State World} :
    setFeeRecipient caller state newRecipient = .ok next ↔
      caller = state.dex.owner ∧
        next = { state with dex := { state.dex with feeRecipient := newRecipient } } := by
  simp only [setFeeRecipient, bind_eq_ok, ensure_eq_ok, pure_eq_ok, exists_const]
  rw [eq_comm (b := next)]

/-! ## Inputs that go through -/

variable {env caller state} {next : State World} {tokenA tokenB : Address}

theorem perform_addLiquidity {amountA amountB minLiquidity : U256}
    (performed : perform env state
      (.call caller (.addLiquidity tokenA tokenB amountA amountB minLiquidity)) = .ok next) :
    ∃ liquidity, tokenA ≠ tokenB ∧
      Adds env caller state (sorted tokenA tokenB).1 (sorted tokenA tokenB).2 amountA amountB
        minLiquidity liquidity next.world ∧
      next.dex = added caller state (hashOf env tokenA tokenB) amountA amountB liquidity := by
  simp only [perform, bind_eq_ok, pure_eq_ok] at performed
  obtain ⟨⟨liquidity, _⟩, done, rfl⟩ := performed
  exact ⟨liquidity, (addLiquidity_eq_ok env caller state).mp done⟩

theorem perform_removeLiquidity {liquidity minAmountA minAmountB : U256}
    (performed : perform env state
      (.call caller (.removeLiquidity tokenA tokenB liquidity minAmountA minAmountB)) =
        .ok next) :
    ∃ amountA amountB, tokenA ≠ tokenB ∧
      Removes env caller state (sorted tokenA tokenB).1 (sorted tokenA tokenB).2 liquidity
        amountA amountB next.world ∧
      next.dex = removed caller state (hashOf env tokenA tokenB) liquidity amountA amountB := by
  simp only [perform, bind_eq_ok, pure_eq_ok] at performed
  obtain ⟨⟨⟨amountA, amountB⟩, _⟩, done, rfl⟩ := performed
  obtain ⟨distinct, removes, -, books⟩ := (removeLiquidity_eq_ok env caller state).mp done
  exact ⟨amountA, amountB, distinct, removes, books⟩

theorem perform_swap {tokenIn tokenOut recipient : Address} {amountIn minAmountOut : U256}
    (performed : perform env state
      (.call caller (.swap tokenIn tokenOut amountIn minAmountOut recipient)) = .ok next) :
    tokenIn ≠ tokenOut ∧ ∃ amountOut afterFee pair,
      Swaps env caller state (sorted tokenIn tokenOut).1 (sorted tokenIn tokenOut).2 tokenIn
        tokenOut amountIn minAmountOut recipient afterFee amountOut pair next.world ∧
      next.dex = state.dex.setPair (hashOf env tokenIn tokenOut) pair := by
  simp only [perform, bind_eq_ok, pure_eq_ok] at performed
  obtain ⟨⟨amountOut, _⟩, done, rfl⟩ := performed
  exact ((swap_eq_ok env caller state).mp done).imp_right fun swapped => ⟨amountOut, swapped⟩

end Calls

end ProtonChain.Solidity.ProtonDEX
